import VpnHide.Activator.Model
import VpnHide.Activator.Reduction
import VpnHide.Daemon.Journal
import VpnHide.Kmod.Capture
import VpnHide.Kpm.Backends

/-!
# Delivering a policy

Core projects a config for the native backend of the boot (`core-daemon/src/activation.rs`) and
writes the wire into `/proc/vpnhide_ctl`. The node may have another owner than Core believes, so
its status is read first, through the same open file (`activator/src/kernel_control.rs`); hits are
counted meanwhile. A config that has too many targets is not delivered at all.

From the config to what the kernel answers an app: after any applications, a hook is active for
the uids to which the last config that was delivered gives it, and for no others
(`policy_enforced`).
-/

namespace VpnHide.Activator

open Lib Config Protocol NativePolicy Control
open Daemon (NativeBackend)

/-! ## The projection -/

/-- The family of hooks of a backend. -/
def familyOf : NativeBackend → NativeHookFamily
  | .kmod => .kmod
  | .builtin => .builtin
  | .kpm => .kpm
  | .zygisk => .zygisk

/-- The id of a backend that has the control node. -/
def kernelBackendId : NativeBackend → Option UInt32
  | .builtin => some 4
  | .kmod => some 0
  | .kpm | .zygisk => none

/-- Whether any app is a target of the backend. -/
def hasNativeTargets (cfg : CanonicalConfig) (family : NativeHookFamily) : Bool :=
  cfg.apps.toList.any fun (_, app) => (app.native.hookSet family).isSome

/-- Why no wire is projected: there are too many targets, or what is needed for them is not
    there. -/
inductive ProjectionError
  | capacity (report : NativeCapacityExceeded)
  | config (e : CanonicalError)
  /-- PackageManager does not answer. -/
  | resolver (text : Str)

/-- `project_native_for_family`: PackageManager is only asked if there are targets. -/
def projectNativeForFamily (text : JsonText) (json : Str)
    (resolver : Except Str (StrMap (List UInt32))) (family : NativeHookFamily) :
    Except ProjectionError Bytes :=
  match parseCanonical text json with
  | .error e => .error (.config e)
  | .ok cfg =>
    if !hasNativeTargets cfg family then .ok (formatConfig cfg.debug 0 [])
    else
      match resolver with
      | .error e => .error (.resolver e)
      | .ok packages =>
        match projectNativeWithResolverForFamily cfg packages family with
        | .error e => .error (.capacity e)
        | .ok wire => .ok wire

/-- `project_native_wire`: the wire for a backend of Core, projected for its family. -/
def projectNativeWire (text : JsonText) (config : Config.CanonicalConfig) (backend : NativeBackend)
    (resolver : Except Str (StrMap (List UInt32))) : Except ProjectionError Bytes :=
  projectNativeForFamily text (toJsonString text config) resolver (familyOf backend)

/-! ## The control node -/

/-- Who owns the control node, from what is read there. -/
def parseBackend (text : Bytes) : Option UInt32 :=
  ((parseStatusFields text).bind StatusFields.complete).map (·.backend)

/-- The driver that has the control node. -/
structure Owner where
  build : Kmod.Build
  /-- Whether the built-in driver is built with its filesystem hooks. -/
  fsHiding : Bool
  kver : UInt32

/-- The hooks that it may enable. -/
def Owner.ownedMask (owner : Owner) : UInt32 :=
  match owner.build with
  | .kmod => kernelHookMask ||| kmodHookMask
  | .builtin => Builtin.ownedHookMask owner.fsHiding

/-- `/proc/vpnhide_ctl`, with its owner. -/
structure Node where
  owner : Owner
  state : State
  /-- The hits that have been counted. -/
  hits : List Kmod.Hit

/-- Why the payload of a write does not get into the kernel. -/
inductive CopyFault
  /-- `-ENOMEM`, for the payload or for the targets. -/
  | noMemory
  /-- `-EFAULT` of `copy_from_user`. -/
  | badAddress

/-- The error number that the writer gets, without its sign. -/
def CopyFault.errno : CopyFault → ℤ
  | .noMemory => 12
  | .badAddress => 14

/-- `ctl_write` of the owner. Its length is checked before the payload is copied. -/
def Node.ctlWrite (node : Node) (fault : Option CopyFault) (wire : Bytes) : ℤ × State :=
  match fault with
  | some fault =>
    if State.pageSize < wire.length then (-State.einval, node.state) else (-fault.errno, node.state)
  | none =>
    match node.owner.build with
    | .kmod => Kmod.ctlWrite node.state wire
    | .builtin => Builtin.ctlWrite node.owner.fsHiding node.state wire

/-- A read of the node to its end. -/
structure FullRead where
  events : List Kmod.Event
  ends : (Kmod.Reading.run .kmod 0 [] events).pos = Kmod.ctlSeqEnd

/-- Why a wire is not delivered. -/
inductive DeliveryError
  /-- The backend is not configured through the node. -/
  | notByNode
  | os (errno : ℤ)
  /-- The status is invalid or incomplete. -/
  | status
  | foreign (expected found : UInt32)
  /-- A partial snapshot, which is not tried again. -/
  | short

/-- `write_config`: the status is read, and the wire written if the owner is the expected one. -/
def writeConfig (node : Node) (expected : UInt32) (reading : Except ℤ FullRead)
    (fault : Option CopyFault) (wire : Bytes) : Except DeliveryError Unit × Node :=
  match reading with
  | .error errno => (.error (.os errno), node)
  | .ok read =>
    let status :=
      Str.toUtf8 (Kmod.Reading.run node.owner.build node.owner.kver node.hits read.events).text
    let node := { node with hits := node.hits ++ Kmod.hitsOf read.events }
    match parseBackend status with
    | none => (.error .status, node)
    | some backend =>
      if backend ≠ expected then (.error (.foreign expected backend), node)
      else
        let (written, state) := node.ctlWrite fault wire
        if written < 0 then (.error (.os (-written)), { node with state })
        else if written ≠ wire.length then (.error .short, { node with state })
        else (.ok (), { node with state })

/-- `deliver_native`: only what the kernel holds is written through the node. -/
def deliverNative (node : Node) (backend : NativeBackend) (reading : Except ℤ FullRead)
    (fault : Option CopyFault) (wire : Bytes) : Except DeliveryError Unit × Node :=
  match kernelBackendId backend with
  | none => (.error .notByNode, node)
  | some expected => writeConfig node expected reading fault wire

/-! ## Applications -/

/-- What is applied: a config, for the backend of the boot, with the packages of the time, and how
    the status is read and the payload is copied. Some hits have been counted since the last
    application. -/
structure Application where
  config : Config.CanonicalConfig
  backend : NativeBackend
  resolver : Except Str (StrMap (List UInt32))
  hits : List Kmod.Hit
  reading : Except ℤ FullRead
  fault : Option CopyFault

/-- Where an application fails. -/
inductive ApplicationError
  | projection (e : ProjectionError)
  | delivery (e : DeliveryError)

variable (text : JsonText)

/-- A config is projected, and the wire is delivered. -/
def Node.apply (node : Node) (a : Application) : Except ApplicationError Unit × Node :=
  let node := { node with hits := node.hits ++ a.hits }
  match projectNativeWire text a.config a.backend a.resolver with
  | .error e => (.error (.projection e), node)
  | .ok wire =>
    match deliverNative node a.backend a.reading a.fault wire with
    | (.error e, node) => (.error (.delivery e), node)
    | (.ok (), node) => (.ok (), node)

/-- The node after several applications. -/
def Node.applyAll (node : Node) (apps : List Application) : Node :=
  apps.foldl (fun node a => (node.apply text a).2) node

/-! ## The status -/

section Status

variable {build : Kmod.Build} {kver : UInt32}

/-- How far a read is does not depend on the counters. -/
theorem pos_run (build : Kmod.Build) (kver : UInt32) (hits : List Kmod.Hit)
    (events : List Kmod.Event) :
    (Kmod.Reading.run build kver hits events).pos = (Kmod.Reading.run .kmod 0 [] events).pos ∧
      (Kmod.Reading.run build kver hits events).shown.isSome =
        (Kmod.Reading.run .kmod 0 [] events).shown.isSome := by
  induction events using List.reverseRecOn with
  | nil =>
    simp only [Kmod.Reading.run, List.foldl_nil, Kmod.Reading.start, Option.isSome_none, and_self]
  | append_singleton events event ih =>
    obtain ⟨hpos, hshown⟩ := ih
    rw [Kmod.Reading.run_concat, Kmod.Reading.run_concat]
    cases event with
    | hit hit =>
      rw [Kmod.Reading.step, Kmod.Reading.step]
      exact ⟨hpos, hshown⟩
    | showing hooks filesystemHiding =>
      rw [Kmod.Reading.step, Kmod.Reading.step, hpos]
      split_ifs
      · exact ⟨hpos, hshown⟩
      · -- what is shown differs, so that only `isSome` may be compared
        exact ⟨rfl, Option.isSome_some.trans Option.isSome_some.symm⟩
    | next =>
      rw [Kmod.Reading.step, Kmod.Reading.step]
      cases h : (Kmod.Reading.run build kver hits events).shown with
      | none =>
        have hnone : (Kmod.Reading.run .kmod 0 [] events).shown = none := by
          rw [h] at hshown
          exact Option.isNone_iff_eq_none.1 (by simpa using hshown.symm)
        rw [hnone]
        exact ⟨hpos, by rw [h, hnone]⟩
      | some t =>
        obtain ⟨t', ht'⟩ := Option.isSome_iff_exists.1 (hshown.symm.trans (by rw [h]; rfl))
        rw [ht']
        exact ⟨congrArg (· + 1) hpos, rfl⟩

/-- The id that a build reports. -/
def buildId : Kmod.Build → UInt32
  | .kmod => 0
  | .builtin => 4

/-- The status names the owner. -/
theorem backend_ctlStatus (build : Kmod.Build) (kver hooks : UInt32) (filesystemHiding : Bool) :
    (Kmod.ctlStatus build kver hooks filesystemHiding).backend = buildId build := by
  cases build <;> rfl

/-- The banner is skipped. -/
theorem parseHeader_banner (rest : Bytes) :
    parseHeader (Str.toUtf8 Kmod.readBanner ++ '\n'.toUInt8 :: rest) = parseHeader rest := by
  have hline : ∀ c ∈ Str.toUtf8 Kmod.readBanner, (c != '\n'.toUInt8) = true := by decide +kernel
  have htake : (Str.toUtf8 Kmod.readBanner ++ '\n'.toUInt8 :: rest).takeWhile (· != '\n'.toUInt8) =
      Str.toUtf8 Kmod.readBanner := by
    rw [List.takeWhile_append_of_pos hline]
    simp
  have hdrop :
      (Str.toUtf8 Kmod.readBanner ++ '\n'.toUInt8 :: rest).drop
      ((Str.toUtf8 Kmod.readBanner).length + 1) = rest := by
    rw [← List.drop_drop, List.drop_left]
    rfl
  have hcomment : isIgnorable (stripCr (Str.toUtf8 Kmod.readBanner)) = true := by decide +kernel
  rw [parseHeader, if_neg (by simp), nextLine, htake, hdrop]
  exact if_pos hcomment

/-- The fields of a status, before other lines. -/
theorem read_statusFields_append (s : Status) (ls : List Bytes) (f : StatusFields) :
    f.read (((statusFields s).map fieldLine).map Str.toUtf8 ++ ls) =
      StatusFields.read ⟨some s.backend, some s.kver, some s.hooks, some s.error⟩ ls := by
  have hread :
      ∀ (fs : List (Str × UInt32)) (fields : StatusFields), (∀ f ∈ fs, f ∈ statusFields s) →
      fields.read ((fs.map fieldLine).map Str.toUtf8 ++ ls) =
        (fs.foldl (fun g f => g.set (Str.toUtf8 f.1) f.2) fields).read ls := by
    intro fs
    induction fs with
    | nil => exact fun fields _ => rfl
    | cons f fs ih =>
      intro fields hfs
      rw [List.map_cons, List.map_cons, List.cons_append,
        StatusFields.read_fieldLine (hfs f List.mem_cons_self),
        ih _ fun g hg => hfs g (List.mem_cons_of_mem _ hg), List.foldl_cons]
  rw [hread _ _ fun f hf => hf]
  rfl

/-- The status is read before the counters, whatever these are. -/
theorem parseBackend_text (status : Status) (counters : Str) :
    parseBackend (Str.toUtf8 (Kmod.readBanner ++ '\n' :: (formatStatus status ++
      (telemetryHeader "stats".toList ++ '\n' :: counters)))) = some status.backend := by
  -- Every line of the status is a record, which holds no line break.
  have hrecord :
      ∀ l ∈ (statusFields status).map fieldLine, ∃ w ws, IsRecordLine (Str.toUtf8 l) w ws := by
    intro l hl
    obtain ⟨f, hf, rfl⟩ := List.mem_map.1 hl
    exact ⟨_, _, isRecordLine_fieldLine hf⟩
  have hbytes :
      ∀ l ∈ ((statusFields status).map fieldLine).map Str.toUtf8, ∀ c ∈ l, IsLineByte c := by
    intro l hl
    obtain ⟨l', hl', rfl⟩ := List.mem_map.1 hl
    obtain ⟨w, ws, hline⟩ := hrecord l' hl'
    exact hline.isLineByte
  have hstats := isRecordLine_blockLine (show Str.IsWord statsWord by decide)
  set rest := Str.toUtf8 counters
  have htext : Str.toUtf8 (Kmod.readBanner ++ '\n' :: (formatStatus status ++
      (telemetryHeader "stats".toList ++ '\n' :: counters))) =
      Str.toUtf8 Kmod.readBanner ++ '\n'.toUInt8 ::
        (Str.toUtf8 (blockLine statusWord) ++ '\n'.toUInt8 ::
          (unlines (((statusFields status).map fieldLine).map Str.toUtf8) ++
            (Str.toUtf8 (blockLine statsWord) ++ '\n'.toUInt8 :: rest))) := by
    have hcons : ∀ t : Str, Str.toUtf8 ('\n' :: t) = '\n'.toUInt8 :: Str.toUtf8 t := fun _ => rfl
    rw [formatStatus_eq, statusLines_eq, Str.unlines_cons, telemetryHeader_stats]
    simp only [Str.toUtf8_append, hcons, toUtf8_unlines, List.append_assoc, List.cons_append, rest]
  have hkind : headerKind (Str.toUtf8 (blockLine statusWord)) = some .status :=
    headerKind_statusLine
  have hlines : (lines (unlines (((statusFields status).map fieldLine).map Str.toUtf8) ++
      (Str.toUtf8 (blockLine statsWord) ++ '\n'.toUInt8 :: rest))).filterMap significant =
        ((statusFields status).map fieldLine).map Str.toUtf8 ++
          Str.toUtf8 (blockLine statsWord) :: (lines rest).filterMap significant := by
    rw [lines_unlines_append hbytes, lines_cons hstats.isLineByte, List.filterMap_append,
      filterMap_significant hrecord, List.filterMap_cons, hstats.significant]
  -- The header of the counters ends the block of the status.
  have hend : ∀ f : StatusFields,
      f.read (Str.toUtf8 (blockLine statsWord) :: (lines rest).filterMap significant) = some f := by
    intro f
    rw [StatusFields.read, hstats.tokens]
    exact if_pos rfl
  have hparse : parseStatusFields (Str.toUtf8 (Kmod.readBanner ++ '\n' :: (formatStatus status ++
      (telemetryHeader "stats".toList ++ '\n' :: counters)))) = some ⟨some status.backend,
        some status.kver, some status.hooks, some status.error⟩ := by
    rw [parseStatusFields, htext, parseHeader_banner, parseHeader_blockLine (by decide) hkind,
      Option.bind_eq_bind, Option.bind_some]
    dsimp only
    rw [hlines, read_statusFields_append, hend]
    rfl
  rw [parseBackend, hparse]
  rfl

/-- What is shown at a position, as far as it matters for the owner. -/
def Told (build : Kmod.Build) (t : Str) : ℕ → Prop
  | 0 => t = Kmod.readBanner ++ ['\n']
  | 1 => ∃ status : Status, status.backend = buildId build ∧ t = formatStatus status
  | 2 => t = telemetryHeader "stats".toList ++ ['\n']
  | _ => True

/-- Each part of the text tells who the owner is. -/
theorem told_ctlSeqShow (build : Kmod.Build) (kver hooks : UInt32) (filesystemHiding : Bool)
    (t : Kmod.Table) (item : ℕ) :
    Told build (Kmod.ctlSeqShow t (Kmod.ctlStatus build kver hooks filesystemHiding) item)
      item := by
  rcases item with _ | _ | _ | item
  · rfl
  · exact ⟨_, backend_ctlStatus build kver hooks filesystemHiding, rfl⟩
  · rfl
  · trivial

/-- A read has got one text for each position. -/
theorem told_run (build : Kmod.Build) (kver : UInt32) (hits : List Kmod.Hit)
    (events : List Kmod.Event) :
    (∀ t, (Kmod.Reading.run build kver hits events).shown = some t →
        Told build t (Kmod.Reading.run build kver hits events).pos) ∧
      ∃ ts : List Str, ts.length = (Kmod.Reading.run build kver hits events).pos ∧
        (Kmod.Reading.run build kver hits events).text = ts.flatten ∧ ∀ i t, ts[i]? = some t →
          Told build t i := by
  induction events using List.reverseRecOn with
  | nil =>
    refine ⟨fun t ht => ?_, [], rfl, rfl, fun i t ht => ?_⟩
    · cases ht
    · cases ht
  | append_singleton events event ih =>
    obtain ⟨hshown, ts, hlen, htext, htold⟩ := ih
    rw [Kmod.Reading.run_concat]
    set r := Kmod.Reading.run build kver hits events
    -- Only asking for the next record adds to the text, and what it adds is what was shown.
    cases event with
    | hit hit => exact ⟨hshown, ts, hlen, htext, htold⟩
    | showing hooks filesystemHiding =>
      rw [Kmod.Reading.step]
      split_ifs
      · exact ⟨hshown, ts, hlen, htext, htold⟩
      · refine ⟨fun t ht => ?_, ts, hlen, htext, htold⟩
        rw [← Option.some.inj ht]
        exact told_ctlSeqShow build kver hooks filesystemHiding r.table r.pos
    | next =>
      rw [Kmod.Reading.step]
      cases h : r.shown with
      | none => exact ⟨hshown, ts, hlen, htext, htold⟩
      | some t =>
        refine ⟨fun t' ht' => ?_, ts ++ [t], by simp [hlen], by simp [htext], fun i t' ht' => ?_⟩
        · cases ht'
        obtain hlt | heq | hgt := Nat.lt_trichotomy i ts.length
        · rw [List.getElem?_append_left hlt] at ht'
          exact htold i t' ht'
        · rw [heq, List.getElem?_concat_length] at ht'
          rw [← Option.some.inj ht', heq, hlen]
          exact hshown t h
        · rw [List.getElem?_eq_none (by simpa using hgt)] at ht'
          cases ht'

/-- A read of the node to its end tells its owner. -/
theorem parseBackend_fullRead (node : Node) (read : FullRead) :
    parseBackend
      (Str.toUtf8 (Kmod.Reading.run node.owner.build node.owner.kver node.hits read.events).text) =
      some (buildId node.owner.build) := by
  obtain ⟨-, ts, hlen, htext, htold⟩ :=
    told_run node.owner.build node.owner.kver node.hits read.events
  rw [(pos_run node.owner.build node.owner.kver node.hits read.events).1, read.ends, Kmod.ctlSeqEnd]
    at hlen
  rcases ts with _ | ⟨t₀, _ | ⟨t₁, _ | ⟨t₂, rest⟩⟩⟩
  · cases hlen
  · cases hlen
  · cases hlen
  · obtain ⟨status, hbackend, h₁⟩ := htold 1 t₁ rfl
    have h₀ := htold 0 t₀ rfl
    have h₂ := htold 2 t₂ rfl
    simp only [Told] at h₀ h₂
    rw [htext, ← hbackend, ← parseBackend_text status rest.flatten, h₀, h₁, h₂]
    simp

end Status

/-! ## What is delivered -/

namespace Application

variable (a : Application) (build : Kmod.Build)

/-- No app has a hook, or there are not too many targets. -/
def Fits : Prop :=
  (∀ (pkg : Str) (app : Config.AppConfig), a.config.apps[pkg]? = some app →
    (selectionOf app.native).hookSet (familyOf a.backend) = none) ∨
    ∃ packages, a.resolver = .ok packages ∧
      (projectedUids a.config packages (familyOf a.backend)).ncard ≤ maxTargetUids

/-- The node belongs to the backend, its status can be read, and the payload be copied. -/
def Delivered : Prop :=
  kernelBackendId a.backend = some (buildId build) ∧ (∃ read, a.reading = .ok read) ∧
    a.fault = none ∧ a.Fits

/-- The config gives a hook to a package with the uid. -/
def Hides (uid : UInt32) (hook : HookId) : Prop :=
  ∃ packages pkg hooks, a.resolver = .ok packages ∧
    Targets a.config packages (familyOf a.backend) pkg uid hooks ∧
    hooks.toNat.testBit hook.id = true

/-- It is the last of some applications that was delivered. -/
def IsLast (apps : List Application) : Prop :=
  ∃ before after, apps = before ++ a :: after ∧ a.Delivered build ∧ ∀ b ∈ after, ¬b.Delivered build

end Application

section Projected

variable {text : JsonText} {toVec : Config.CanonicalConfig → Except Str ℕ} {a : Application}

/-- A hook is in a mask just if its bit is. -/
theorem and_hookBit_ne_zero (mask : UInt32) (hook : HookId) :
    mask &&& hookBit hook ≠ 0 ↔ Bit mask hook.id := by
  have hzero : mask &&& hookBit hook = 0 ↔ mask.toNat &&& 2 ^ hook.id = 0 := by
    rw [← UInt32.toNat_inj, UInt32.toNat_and, toNat_hookBit, UInt32.toNat_zero]
  rw [ne_eq, hzero, Bit]
  constructor
  · intro hne
    by_contra hbit
    refine hne (Nat.eq_of_testBit_eq fun i => ?_)
    rw [Nat.testBit_and, Nat.testBit_two_pow, Nat.zero_testBit]
    by_cases hi : hook.id = i
    · rw [← hi, Bool.eq_false_iff.2 hbit, Bool.false_and]
    · rw [decide_eq_false hi, Bool.and_false]
  · intro hbit hz
    have htest := congrArg (Nat.testBit · hook.id) hz
    simp [hbit] at htest

/-- A mask within another is not changed by it. -/
theorem and_eq_self_of_bit {mask owned : UInt32} (h : ∀ i, Bit mask i → Bit owned i) :
    mask &&& owned = mask := by
  rw [← UInt32.toNat_inj, UInt32.toNat_and]
  refine Nat.eq_of_testBit_eq fun i => ?_
  rw [Nat.testBit_and]
  cases hi : mask.toNat.testBit i with
  | false => rfl
  | true => rw [Bool.true_and, show owned.toNat.testBit i = true from h i hi]

/-- Without targets no app selects a hook. -/
theorem hasNativeTargets_eq_false_iff {cfg : CanonicalConfig} {config : Config.CanonicalConfig}
    {family : NativeHookFamily}
    (happs : ∀ pkg : Str, cfg.apps[pkg]? = (config.apps[pkg]?).map appOf) :
    hasNativeTargets cfg family = false ↔
      ∀ (pkg : Str) (app : Config.AppConfig), config.apps[pkg]? = some app →
        (selectionOf app.native).hookSet family = none := by
  rw [hasNativeTargets, List.any_eq_false]
  constructor
  · intro h pkg app happ
    have hmem : (pkg, appOf app) ∈ cfg.apps.toList := by
      rw [Std.ExtTreeMap.mem_toList_iff_getElem?_eq_some, happs, happ]
      rfl
    simpa [appOf] using h _ hmem
  · rintro h ⟨pkg, app⟩ hmem
    rw [Std.ExtTreeMap.mem_toList_iff_getElem?_eq_some, happs, Option.map_eq_some_iff] at hmem
    obtain ⟨app', happ, rfl⟩ := hmem
    have hnone := h pkg app' happ
    simpa [appOf] using hnone

/-- What the policy of an application is to a backend that has it. -/
structure Serves (cfg : Protocol.Config) (a : Application) : Prop where
  debug : cfg.debug = some a.config.debug
  mask : ∀ uid (hook : HookId), Bit (Kpm.maskOf cfg uid) hook.id ↔ a.Hides uid hook
  owned : ∀ uid i, Bit (Kpm.maskOf cfg uid) i → Bit Kpm.State.ownMask i

/-- A family of the control node has the hooks of the kernel. -/
theorem fullSet_familyOf {backend : NativeBackend} (hkernel : (kernelBackendId backend).isSome) :
    (familyOf backend).fullSet = Kpm.State.ownMask := by
  cases backend with
  | kmod => rfl
  | builtin => rfl
  | kpm => cases hkernel
  | zygisk => cases hkernel

/-- The mask of a uid among some targets. -/
theorem maskOf_targets (debug : Option Bool) (byUid : TargetSet) (uid : UInt32) :
    Kpm.maskOf ⟨debug, 0, targets byUid⟩ uid = (targetAt byUid uid).1 := by
  rw [Kpm.maskOf]
  cases hfind : (targets byUid).find? fun t => t.uid = uid with
  | none =>
    have hnone : byUid[uid]? = none := by
      refine Std.ExtTreeMap.getElem?_eq_none fun hmem => ?_
      have hnot :=
        List.find?_eq_none.1 hfind ⟨uid, (targetAt byUid uid).1⟩ (mem_targets.2 ⟨hmem, rfl⟩)
      exact hnot (decide_eq_true rfl)
    rw [targetAt, hnone]
    rfl
  | some t =>
    have huid : t.uid = uid := by simpa using List.find?_some hfind
    have hmask := (mem_targets.1 (List.mem_of_find?_eq_some hfind)).2
    rw [huid] at hmask
    exact hmask.symm

/-- A wire has all targets, if there is room for them. -/
theorem wire_of_projectNative {cfg : CanonicalConfig} {packages : StrMap (List UInt32)}
    {family : NativeHookFamily} {w : Bytes}
    (h : projectNativeWithResolverForFamily cfg packages family = .ok w) :
    (targetSet cfg packages family).size ≤ maxTargetUids ∧
      w = formatConfig cfg.debug 0 (targets (targetSet cfg packages family)) := by
  rw [projectNativeWithResolverForFamily, projectNative] at h
  dsimp only at h
  split at h
  · cases h
  · rename_i hroom
    exact ⟨not_lt.1 hroom, (Except.ok.inj h).symm⟩

/-- What the config says is what the targets say. -/
theorem serves_targets {cfg : CanonicalConfig} {packages : StrMap (List UInt32)}
    (happs : ∀ pkg : Str, cfg.apps[pkg]? = (a.config.apps[pkg]?).map appOf)
    (hsettings : cfg.settings.optionalFeatures = a.config.settings.optionalFeatures)
    (hown : (familyOf a.backend).fullSet = Kpm.State.ownMask)
    (hresolver : a.resolver = .ok packages) :
    Serves ⟨some a.config.debug, 0, targets (targetSet cfg packages (familyOf a.backend))⟩ a := by
  have hbits (uid : UInt32) (i : ℕ) :=
    @bit_targetSet a.config cfg packages (familyOf a.backend) happs hsettings uid i
  refine ⟨rfl, fun uid hook => ?_, fun uid i hi => ?_⟩
  · rw [maskOf_targets, hbits]
    constructor
    · rintro ⟨pkg, hooks, htargets, hbit⟩
      exact ⟨packages, pkg, hooks, hresolver, htargets, hbit⟩
    · rintro ⟨packages', pkg, hooks, hresolver', htargets, hbit⟩
      obtain rfl := Except.ok.inj (hresolver.symm.trans hresolver')
      exact ⟨pkg, hooks, htargets, hbit⟩
  · rw [maskOf_targets, hbits] at hi
    obtain ⟨pkg, hooks, ⟨⟨app, -, hhooks⟩, -⟩, hbit⟩ := hi
    rw [← hown]
    exact (effectiveHooks_spec hhooks).2.1 i hbit

/-- The wire of as many targets as there may be fits a page. -/
theorem length_wire_le (debug : Bool) {ts : List Target} (hlen : ts.length ≤ maxTargetUids)
    (hnodup : (ts.map (·.uid)).Nodup)
    (hmask : ∀ t ∈ ts, ∀ i, Bit t.hookmask i → Bit Kpm.State.ownMask i) :
    (formatConfig debug 0 ts).length ≤ State.pageSize := by
  have hdefault : (0 : UInt32).toNat < 16 ^ 7 := by decide
  have hle := length_formatConfig_le debug hdefault
    (fun t ht => Backends.toNat_lt_of_and_ownMask (and_eq_self_of_bit (hmask t ht))) hnodup hlen
  exact hle.trans (by decide)

/-- A wire is projected if the targets fit; it is no longer than a page, and says what the config
    says. -/
theorem projectNativeWire_spec (hfaithful : text.Faithful (toDisk a.config))
    (hvalid : validateCandidate text toVec a.config = .ok ())
    (hkernel : (kernelBackendId a.backend).isSome) :
    ((∃ w, projectNativeWire text a.config a.backend a.resolver = .ok w) ↔ a.Fits) ∧
      ∀ w, projectNativeWire text a.config a.backend a.resolver = .ok w →
        w.length ≤ State.pageSize ∧ ∃ cfg, parseConfig w = some cfg ∧ Serves cfg a := by
  obtain ⟨cfg, hparse, hdebug, happs, hsettings⟩ :=
    parseCanonical_toJsonString hfaithful (canonical_of_validateCandidate hvalid)
  have hnative : hasNativeTargets cfg (familyOf a.backend) = false ↔ _ :=
    hasNativeTargets_eq_false_iff happs
  have hown := fullSet_familyOf hkernel
  rw [projectNativeWire, projectNativeForFamily, hparse, Application.Fits, ← hnative]
  dsimp only
  cases hany : hasNativeTargets cfg (familyOf a.backend) with
  | false =>
    -- nothing is hidden from anyone
    simp only [Bool.not_false, if_true, Except.ok.injEq, exists_eq', true_or, true_and]
    rintro w rfl
    have hnone : ∀ uid hook, ¬a.Hides uid hook := by
      rintro uid hook ⟨packages, pkg, hooks, -, ⟨⟨app, happ, hhooks⟩, -⟩, -⟩
      rw [appHooks, effectiveHooks, hnative.1 hany pkg app happ] at hhooks
      cases hhooks
    refine ⟨length_wire_le _ (Nat.zero_le _) .nil (List.forall_mem_nil _), _,
      parseConfig_of_formatConfig cfg.debug 0 (Nat.zero_le _) .nil, ?_,
      fun uid hook => ?_, fun uid i hi => ?_⟩
    · rw [hdebug]
    · exact iff_of_false (not_bit_zero _) (hnone uid hook)
    · exact absurd hi (not_bit_zero i)
  | true =>
    simp only [Bool.not_true, Bool.false_eq_true, if_false, Bool.true_eq_false, false_or]
    cases hresolver : a.resolver with
    | error e =>
      simp
    | ok packages =>
      have hset : projectedUids a.config packages (familyOf a.backend) =
          {uid | uid ∈ targetSet cfg packages (familyOf a.backend)} :=
        Set.ext fun uid => (mem_targetSet happs hsettings).symm
      have hserves := serves_targets happs hsettings hown hresolver
      simp only [Except.ok.injEq, exists_eq_left', hset, ncard_targetSet]
      cases hw : projectNativeWithResolverForFamily cfg packages (familyOf a.backend) with
      | error e =>
        have hfull : maxTargetUids < (targetSet cfg packages (familyOf a.backend)).size :=
          projectNative_isError.1 ⟨e, hw⟩
        simp [Nat.not_le.2 hfull]
      | ok wire =>
        obtain ⟨hroom, rfl⟩ := wire_of_projectNative hw
        have hsorted := sorted_targets (targetSet cfg packages (familyOf a.backend))
        have hnodup :
            ((targets (targetSet cfg packages (familyOf a.backend))).map (·.uid)).Nodup := by
          rw [List.nodup_iff_pairwise_ne, List.pairwise_map]
          exact hsorted.imp fun hlt => ne_of_lt hlt
        simp only [Except.ok.injEq, exists_eq', hroom, true_and]
        rintro w rfl
        refine ⟨length_wire_le _ ?_ hnodup fun t ht i hi => ?_, _, projectNative_ok hw, ?_⟩
        · rw [targets, List.length_map, Std.ExtTreeMap.length_toList]
          exact hroom
        · refine hserves.owned t.uid i ?_
          rw [maskOf_targets, (mem_targets.1 ht).2]
          exact hi
        · rw [hdebug]
          exact hserves

end Projected

/-! ## What is enforced -/

/-- A node has the policy of an application as far as it owns the hooks, or none. -/
structure Enforces (node : Node) (policy : Option Application) : Prop where
  holds : ∃ cfg, Kpm.Holds node.state.kpm cfg ∧
    (∀ uid (hook : HookId), Bit (Kpm.maskOf cfg uid) hook.id ↔
      Bit node.owner.ownedMask hook.id ∧ ∃ a, policy = some a ∧ a.Hides uid hook) ∧
    ∀ uid i, Bit (Kpm.maskOf cfg uid) i → Bit Kpm.State.ownMask i
  debug : node.state.debugEnabled = true ↔ ∃ a, policy = some a ∧ a.config.debug = true

section Enforced

variable {text : JsonText} {toVec : Config.CanonicalConfig → Except Str ℕ} {a : Application}
  {node : Node} {policy : Option Application} {uid : UInt32}

/-- A node that has just been loaded enforces nothing. -/
theorem Enforces.zero (h : node.state = .zero) : Enforces node none := by
  refine ⟨⟨⟨none, 0, []⟩, ?_, fun uid hook => ?_, fun uid i hi => absurd hi (not_bit_zero i)⟩, ?_⟩
  · rw [h]
    exact Kpm.State.IsInitial.holds ⟨rfl, rfl, rfl, rfl, rfl, rfl⟩
  · refine iff_of_false (not_bit_zero _) ?_
    rintro ⟨-, a, ha, -⟩
    cases ha
  · rw [h]
    refine iff_of_false (by decide) ?_
    rintro ⟨a, ha, -⟩
    cases ha

/-- Only apps are hidden from. -/
theorem Application.Hides.isAppUid {hook : HookId} (h : a.Hides uid hook) :
    Kpm.firstAppUid ≤ uid % Kpm.perUserRange := by
  obtain ⟨packages, pkg, hooks, -, ⟨-, htargets⟩, -⟩ := h
  have happ : NativePolicy.isAppUid uid = true := by
    split_ifs at htargets
    · have hfound := List.find?_some htargets
      exact (Bool.and_eq_true_iff.1 hfound).2
    · exact htargets.2
  exact of_decide_eq_true happ

/-- What a node answers. -/
theorem Enforces.hookActive (h : Enforces node policy) (uid : UInt32) (hook : HookId) :
    node.state.hookActive false uid hook = true ↔
      Bit node.owner.ownedMask hook.id ∧ ∃ a, policy = some a ∧ a.Hides uid hook := by
  obtain ⟨cfg, hholds, hmask, howned⟩ := h.holds
  rw [State.hookActive_kpm, Kpm.hookActive_eq hholds, and_eq_self_of_bit (howned uid),
    and_hookBit_ne_zero, hmask]
  constructor
  · exact And.right
  · rintro ⟨hown, a, ha, hhides⟩
    exact ⟨hhides.isAppUid, hown, a, ha, hhides⟩

/-- A write whose payload gets into the kernel is one of its owner. -/
theorem ctlWrite_none (node : Node) (wire : Bytes) :
    node.ctlWrite none wire = State.ctlWrite node.owner.ownedMask node.state wire := by
  rw [Node.ctlWrite, Owner.ownedMask]
  cases node.owner.build <;> rfl

/-- A payload that is not copied changes nothing. -/
theorem ctlWrite_some (node : Node) (fault : CopyFault) (wire : Bytes) :
    (node.ctlWrite (some fault) wire).1 < 0 ∧ (node.ctlWrite (some fault) wire).2 = node.state := by
  rw [Node.ctlWrite]
  split_ifs
  · exact ⟨show -State.einval < 0 by decide, rfl⟩
  · refine ⟨?_, rfl⟩
    cases fault with
    | noMemory => exact show -CopyFault.noMemory.errno < 0 by decide
    | badAddress => exact show -CopyFault.badAddress.errno < 0 by decide

/-- It owns no hooks but those of the kernel. -/
theorem Owner.ownedMask_and_ownMask (owner : Owner) :
    owner.ownedMask &&& Kpm.State.ownMask = owner.ownedMask := by
  rw [Owner.ownedMask]
  cases owner.build with
  | kmod =>
    exact show (kernelHookMask ||| kmodHookMask) &&& Kpm.State.ownMask =
      kernelHookMask ||| kmodHookMask by decide
  | builtin =>
    have hbuilt : ∀ fsHiding : Bool,
        Builtin.ownedHookMask fsHiding &&& Kpm.State.ownMask = Builtin.ownedHookMask fsHiding := by
      decide
    exact hbuilt owner.fsHiding

/-- More hits change nothing of the policy. -/
theorem Enforces.hits (h : Enforces node policy) (hits : List Kmod.Hit) :
    Enforces { node with hits } policy :=
  ⟨h.holds, h.debug⟩

/-- A wire that says what a config says is taken by the backend it is for. -/
theorem writeConfig_taken {read : FullRead} {w : Bytes} {cfg : Protocol.Config}
    (hlen : w.length ≤ State.pageSize) (hparse : parseConfig w = some cfg)
    (hserves : Serves cfg a) :
    (writeConfig node (buildId node.owner.build) (.ok read) none w).2.owner = node.owner ∧
      (writeConfig node (buildId node.owner.build) (.ok read) none w).1 = .ok () ∧
      Enforces (writeConfig node (buildId node.owner.build) (.ok read) none w).2 (some a) := by
  obtain ⟨hret, hdebug, hholds⟩ :=
    State.ctlWrite_ownedBy (s := node.state) node.owner.ownedMask_and_ownMask hlen hparse
  have hwrite : writeConfig node (buildId node.owner.build) (.ok read) none w =
      (.ok (), { node with
        hits := node.hits ++ Kmod.hitsOf read.events
        state := (State.ctlWrite node.owner.ownedMask node.state w).2 }) := by
    rw [writeConfig]
    dsimp only
    rw [parseBackend_fullRead]
    dsimp only
    rw [if_neg (not_not.2 rfl), ctlWrite_none]
    dsimp only
    rw [hret, if_neg (by omega), if_neg (not_not.2 rfl)]
  rw [hwrite]
  refine ⟨rfl, rfl,
    ⟨cfg.ownedBy node.owner.ownedMask, hholds, fun uid hook => ?_, fun uid i hi => ?_⟩, ?_⟩
  · rw [maskOf_ownedBy, bit_and, hserves.mask, and_comm]
    simp
  · rw [maskOf_ownedBy, bit_and] at hi
    exact hserves.owned uid i hi.1
  · rw [hdebug, hserves.debug]
    simp

/-- Otherwise nothing is written. -/
theorem writeConfig_refused {expected : UInt32} {reading : Except ℤ FullRead}
    {fault : Option CopyFault} (w : Bytes) (h : Enforces node policy)
    (hrefused : ¬(expected = buildId node.owner.build ∧ (∃ read, reading = .ok read) ∧
      fault = none)) :
    (writeConfig node expected reading fault w).2.owner = node.owner ∧
      (writeConfig node expected reading fault w).1 ≠ .ok () ∧
      Enforces (writeConfig node expected reading fault w).2 policy := by
  cases reading with
  | error errno => exact ⟨rfl, nofun, h⟩
  | ok read =>
    rw [writeConfig]
    dsimp only
    rw [parseBackend_fullRead]
    dsimp only
    by_cases hforeign : buildId node.owner.build ≠ expected
    · rw [if_pos hforeign]
      exact ⟨rfl, nofun, h.hits _⟩
    · rw [if_neg hforeign]
      cases fault with
      | none => exact absurd ⟨(not_not.1 hforeign).symm, ⟨read, rfl⟩, rfl⟩ hrefused
      | some fault =>
        -- the driver answers an error, and has changed nothing
        obtain ⟨hret, hstate⟩ :=
          ctlWrite_some { node with hits := node.hits ++ Kmod.hitsOf read.events } fault w
        rw [if_pos hret, hstate]
        exact ⟨rfl, nofun, h.hits _⟩

/-- One application. -/
theorem Enforces.apply (h : Enforces node policy) (hfaithful : text.Faithful (toDisk a.config))
    (hvalid : validateCandidate text toVec a.config = .ok ()) :
    (node.apply text a).2.owner = node.owner ∧
      ((node.apply text a).1 = .ok () ↔ a.Delivered node.owner.build) ∧
      (a.Delivered node.owner.build → Enforces (node.apply text a).2 (some a)) ∧
      (¬a.Delivered node.owner.build → Enforces (node.apply text a).2 policy) := by
  have hhits := h.hits (node.hits ++ a.hits)
  rw [Node.apply]
  -- A backend without a node takes no wire at all.
  cases hbackend : kernelBackendId a.backend with
  | none =>
    have hnot : ¬a.Delivered node.owner.build := by
      rintro ⟨hid, -⟩
      rw [hbackend] at hid
      cases hid
    cases projectNativeWire text a.config a.backend a.resolver with
    | error e => exact ⟨rfl, iff_of_false nofun hnot, fun hd => absurd hd hnot, fun _ => hhits⟩
    | ok w =>
      dsimp only
      rw [deliverNative, hbackend]
      exact ⟨rfl, iff_of_false nofun hnot, fun hd => absurd hd hnot, fun _ => hhits⟩
  | some expected =>
    obtain ⟨hfits, hwire⟩ := projectNativeWire_spec hfaithful hvalid (by rw [hbackend]; rfl)
    cases hw : projectNativeWire text a.config a.backend a.resolver with
    | error e =>
      have hnot : ¬a.Delivered node.owner.build := by
        rintro ⟨-, -, -, hfit⟩
        obtain ⟨w, hok⟩ := hfits.2 hfit
        rw [hw] at hok
        cases hok
      exact ⟨rfl, iff_of_false nofun hnot, fun hd => absurd hd hnot, fun _ => hhits⟩
    | ok w =>
      obtain ⟨hlen, cfg, hparse, hserves⟩ := hwire w hw
      have hfit := hfits.1 ⟨w, hw⟩
      dsimp only
      rw [deliverNative, hbackend]
      dsimp only
      -- The wire fits from here on; what is left is whether the node takes it and answers for it.
      by_cases htaken :
          expected = buildId node.owner.build ∧ (∃ read, a.reading = .ok read) ∧ a.fault = none
      · obtain ⟨rfl, ⟨read, hread⟩, hfault⟩ := htaken
        have hdelivered : a.Delivered node.owner.build := ⟨hbackend, ⟨read, hread⟩, hfault, hfit⟩
        have htaken :=
          @writeConfig_taken a { node with hits := node.hits ++ a.hits } read w
            cfg hlen hparse hserves
        rw [hread, hfault]
        dsimp only at htaken ⊢
        cases hresult :
            writeConfig { node with hits := node.hits ++ a.hits } (buildId node.owner.build)
              (.ok read) none w with
        | mk result node' =>
          rw [hresult] at htaken
          obtain ⟨hbuild, rfl, henforces⟩ := htaken
          exact ⟨hbuild, iff_of_true rfl hdelivered, fun _ => henforces, fun hnot =>
            absurd hdelivered hnot⟩
      · have hnot : ¬a.Delivered node.owner.build := by
          rintro ⟨hid, hread, hfault, -⟩
          rw [hbackend] at hid
          exact htaken ⟨Option.some.inj hid, hread, hfault⟩
        -- A refused wire leaves the node at the last config it took.
        have hrefused := writeConfig_refused w hhits htaken
        cases hresult :
            writeConfig { node with hits := node.hits ++ a.hits } expected a.reading a.fault w with
        | mk result node' =>
          rw [hresult] at hrefused
          obtain ⟨hbuild, hne, henforces⟩ := hrefused
          cases result with
          | error e =>
            exact ⟨hbuild, iff_of_false nofun hnot, fun hd => absurd hd hnot, fun _ => henforces⟩
          | ok u => exact absurd rfl hne

/-- The last application comes after all others. -/
theorem applyAll_concat (node : Node) (apps : List Application) (a : Application) :
    node.applyAll text (apps ++ [a]) = ((node.applyAll text apps).apply text a).2 := by
  rw [Node.applyAll, List.foldl_append]
  rfl

/-- The last one of some applications that was delivered, if there is one. -/
theorem isLast_concat_iff {build : Kmod.Build} {apps : List Application} {b : Application} :
    a.IsLast build (apps ++ [b]) ↔ b.Delivered build ∧ a = b ∨ ¬b.Delivered build ∧
      a.IsLast build apps := by
  constructor
  · rintro ⟨before, after, heq, hdelivered, hafter⟩
    obtain rfl | ⟨rest, c, rfl⟩ := List.eq_nil_or_concat after
    · obtain ⟨-, hlast⟩ := List.append_inj' heq rfl
      obtain rfl : b = a := by simpa using hlast
      exact .inl ⟨hdelivered, rfl⟩
    · have hsplit : apps ++ [b] = (before ++ a :: rest) ++ [c] := by simpa using heq
      obtain ⟨rfl, hlast⟩ := List.append_inj' hsplit rfl
      obtain rfl : b = c := by simpa using hlast
      exact .inr ⟨hafter b (by simp), before, rest, rfl, hdelivered, fun d hd =>
        hafter d (by simp [hd])⟩
  · rintro (⟨hdelivered, rfl⟩ | ⟨hnot, before, after, rfl, hdelivered, hafter⟩)
    · exact ⟨apps, [], rfl, hdelivered, List.forall_mem_nil _⟩
    · refine ⟨before, after ++ [b], by simp, hdelivered, fun c hc => ?_⟩
      obtain hc | hc := List.mem_append.1 hc
      · exact hafter c hc
      · rwa [List.mem_singleton.1 hc]

/-- After some applications a node has the policy of the last one that was delivered. -/
theorem enforces_applyAll (h : node.state = .zero) {apps : List Application}
    (hvalid : ∀ a ∈ apps, text.Faithful (toDisk a.config) ∧
      validateCandidate text toVec a.config = .ok ()) :
    (node.applyAll text apps).owner = node.owner ∧
      ∃ policy, Enforces (node.applyAll text apps) policy ∧ ∀ a, policy = some a ↔
        a.IsLast node.owner.build apps := by
  induction apps using List.reverseRecOn with
  | nil =>
    refine ⟨rfl, none, .zero h, fun a => iff_of_false nofun ?_⟩
    rintro ⟨before, after, heq, -⟩
    simp at heq
  | append_singleton apps b ih =>
    obtain ⟨hbuild, policy, henforces, hlast⟩ := ih fun a ha => hvalid a (List.mem_append_left _ ha)
    obtain ⟨hfaithful, hcandidate⟩ := hvalid b (by simp)
    obtain ⟨hbuild', -, hyes, hno⟩ := henforces.apply hfaithful hcandidate
    rw [hbuild] at hbuild' hyes hno
    rw [applyAll_concat]
    refine ⟨hbuild', ?_⟩
    by_cases hdelivered : b.Delivered node.owner.build
    · refine ⟨some b, hyes hdelivered, fun a => ?_⟩
      rw [isLast_concat_iff]
      simp [hdelivered, eq_comm]
    · refine ⟨policy, hno hdelivered, fun a => ?_⟩
      rw [isLast_concat_iff, hlast]
      simp [hdelivered]

end Enforced

/-- After any applications to a node that has just been loaded, a hook that its owner has is active
    for the uids to which the last config that was delivered gives it, and for no others; and
    debugging is on as that config says. An application succeeds if its backend owns the node, the
    node can be read, the payload can be copied, and the targets fit; otherwise it leaves everything
    as it was. -/
theorem policy_enforced (toVec : Config.CanonicalConfig → Except Str ℕ) {node : Node}
    (h : node.state = .zero) {apps : List Application}
    (hvalid : ∀ a ∈ apps, text.Faithful (toDisk a.config) ∧
      validateCandidate text toVec a.config = .ok ()) :
    (∀ uid hook, (node.applyAll text apps).state.hookActive false uid hook = true ↔
        Bit node.owner.ownedMask hook.id ∧ ∃ a : Application, a.IsLast node.owner.build apps ∧
          a.Hides uid hook) ∧
      ((node.applyAll text apps).state.debugEnabled = true ↔
        ∃ a : Application, a.IsLast node.owner.build apps ∧ a.config.debug = true) ∧
      ∀ before a after, apps = before ++ a :: after →
        (((node.applyAll text before).apply text a).1 = .ok () ↔ a.Delivered node.owner.build) := by
  obtain ⟨howner, policy, henforces, hlast⟩ := enforces_applyAll h hvalid
  refine ⟨fun uid hook => ?_, ?_, ?_⟩
  · rw [henforces.hookActive, howner]
    simp only [hlast]
  · rw [henforces.debug]
    simp only [hlast]
  · -- Each application meets a node that enforces what was delivered before.
    rintro before a after rfl
    obtain ⟨howner', policy', henforces', -⟩ :=
      enforces_applyAll h fun b hb => hvalid b (List.mem_append_left _ hb)
    obtain ⟨hfaithful, hcandidate⟩ := hvalid a (by simp)
    rw [(henforces'.apply hfaithful hcandidate).2.1, howner']

/-- The config with one app is accepted. -/
theorem validateCandidate_nativeConfig :
    nativeText.Faithful (toDisk nativeConfig) ∧ validateCandidate nativeText (fun _ => .ok 300)
      nativeConfig = .ok () := by
  have hnone : ∀ s ∈ (∅ : StrSet), CleanName s := fun s hs => absurd hs Std.ExtTreeSet.not_mem_empty
  have hfaithful : nativeText.Faithful (toDisk nativeConfig) :=
    ⟨Str.trim_ne_nil List.mem_cons_self (by decide), rfl⟩
  have hcanonical : nativeConfig.Canonical := by
    refine ⟨rfl, fun pkg app happ => ?_, hnone, hnone, hnone⟩
    rw [nativeConfig, Std.ExtTreeMap.getElem?_insert] at happ
    split_ifs at happ
    · obtain rfl := Option.some.inj happ
      exact ⟨rfl, by rintro hooks ⟨⟩, ⟨by rintro hooks ⟨⟩, by rintro hooks ⟨⟩⟩, by rintro policy ⟨⟩⟩
    · simp at happ
  have hliterals (a b c d : List Char) (ha : a.length ≤ 100) (hb : b.length ≤ 100)
      (hc : c.length ≤ 100)
      (hd : d.length ≤ 100) :
      ('\x7b' :: (String.ofList a ++ String.ofList b ++ String.ofList c ++
        String.ofList d).toList).length ≤ 401 := by
    simp only [List.length_cons, String.toList_append, String.toList_ofList, List.length_append]
    omega
  have hlength : (toJsonString nativeText nativeConfig).length ≤ 401 := by
    apply hliterals
    all_goals decide
  exact ⟨hfaithful, validateCandidate_eq_ok hfaithful hcanonical
    ((Str.length_toUtf8_le _).trans ((Nat.mul_le_mul_left 4 hlength).trans (by decide))) rfl
    (by decide)⟩

/-- A read that shows each record once. -/
def plainRead : FullRead where
  events := Kmod.showAll Kmod.ctlSeqEnd
  ends := by
    have hpos := @Kmod.pos_showAll .kmod 0 [] [] Kmod.ctlSeqEnd (Nat.zero_add _).le
    rw [List.nil_append] at hpos
    exact hpos.trans (Nat.zero_add _)

/-- PackageManager's answer about the one app. -/
def onePackage : StrMap (List UInt32) :=
  (∅ : StrMap (List UInt32)).insert "org.a".toList [1000, 10123]

/-- It is applied to the module, where the app has one uid. -/
def nativeApplication : Application :=
  ⟨nativeConfig, .kmod, .ok onePackage, [], .ok plainRead, none⟩

/-- The app has another uid then, for which the module has no memory. -/
def movedApplication : Application :=
  { nativeApplication with
    resolver := .ok ((∅ : StrMap (List UInt32)).insert "org.a".toList [10124]), fault :=
      some .noMemory }

/-- The one target of the config. -/
theorem targets_nativeConfig {pkg : Str} {uid : UInt32} {hooks : HookSet}
    (h : Targets nativeConfig onePackage .kmod pkg uid hooks) : uid = 10123 := by
  obtain ⟨⟨app, happ, -⟩, h⟩ := h
  rw [nativeConfig, Std.ExtTreeMap.getElem?_insert] at happ
  split_ifs at happ with hpkg
  · obtain rfl := Std.LawfulEqCmp.compare_eq_iff_eq.1 hpkg
    rw [if_neg (by decide)] at h
    have hmem : uid ∈ [1000, 10123] := by simpa [onePackage] using h.1
    obtain rfl | rfl : uid = 1000 ∨ uid = 10123 := by simpa using hmem
    · exact absurd h.2 (by decide)
    · rfl
  · simp at happ

/-- The app does not see a VPN in its interfaces then, and another app does: the second application
    is refused. -/
theorem policy_enforced_two :
    let node : Node := ⟨⟨.kmod, false, 0⟩, .zero, []⟩
    let applied := node.applyAll nativeText [nativeApplication, movedApplication]
    applied.state.hookActive false 10123 .devIoctl = true ∧
      applied.state.hookActive false 10124 .devIoctl = false ∧
      (node.apply nativeText nativeApplication).1 = .ok () ∧
      ((node.applyAll nativeText [nativeApplication]).apply nativeText movedApplication).1 ≠
        .ok () := by
  intro node applied
  have hvalid : ∀ a ∈ [nativeApplication, movedApplication], nativeText.Faithful (toDisk a.config) ∧
      validateCandidate nativeText (fun _ => .ok 300) a.config = .ok () := by
    rw [List.forall_mem_cons, List.forall_mem_singleton]
    exact ⟨validateCandidate_nativeConfig, validateCandidate_nativeConfig⟩
  obtain ⟨henforced, -, hresults⟩ :=
    @policy_enforced nativeText (fun _ => .ok 300) node rfl _ hvalid
  -- The first application writes one target, the app whose package is resolved.
  have htargets :
      Targets nativeConfig onePackage .kmod "org.a".toList 10123 NativeHookFamily.kmod.fullSet := by
    refine ⟨⟨_, Std.ExtTreeMap.getElem?_insert_self, rfl⟩, ?_⟩
    · rw [if_neg (by decide)]
      simp [onePackage]
      decide
  have hfits : nativeApplication.Fits := by
    refine .inr ⟨onePackage, rfl, ?_⟩
    have hsub : projectedUids nativeConfig onePackage .kmod ⊆ {10123} := by
      rintro uid ⟨pkg, hooks, h⟩
      exact targets_nativeConfig h
    exact (Set.ncard_le_ncard hsub).trans (by simp [maxTargetUids])
  have hdelivered : nativeApplication.Delivered .kmod := ⟨rfl, ⟨plainRead, rfl⟩, rfl, hfits⟩
  -- The second one fails to be written.
  have hmoved : ¬movedApplication.Delivered .kmod := by
    rintro ⟨-, -, hfault, -⟩
    cases hfault
  -- So that the first one is the last that was delivered.
  have hlast (a : Application) : a.IsLast .kmod [nativeApplication, movedApplication] ↔
      nativeApplication = a := by
    have hfirst : a.IsLast .kmod ([] ++ [nativeApplication]) ↔ nativeApplication = a := by
      rw [isLast_concat_iff]
      simp [hdelivered, eq_comm]
    rw [← hfirst, show [nativeApplication, movedApplication] =
      [nativeApplication] ++ [movedApplication] from rfl, isLast_concat_iff]
    simp [hmoved]
  refine ⟨?_, ?_, ?_, ?_⟩
  · have hown : Bit (kernelHookMask ||| kmodHookMask) HookId.devIoctl.id := by rw [Bit]; decide
    exact (henforced _ _).2 ⟨hown, _, (hlast _).2 rfl, onePackage, _, _, rfl, htargets, by decide⟩
  · rw [Bool.eq_false_iff]
    intro hactive
    obtain ⟨-, a, ha, packages, pkg, hooks, hresolver, h, -⟩ := (henforced _ _).1 hactive
    obtain rfl := (hlast a).1 ha
    obtain rfl := Except.ok.inj hresolver
    exact absurd (targets_nativeConfig h) (by decide)
  · exact (hresults [] nativeApplication [movedApplication] rfl).2 hdelivered
  · exact fun hok => hmoved ((hresults [nativeApplication] movedApplication [] rfl).1 hok)

end VpnHide.Activator
